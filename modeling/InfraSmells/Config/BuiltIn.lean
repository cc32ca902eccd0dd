import InfraSmells.Config.Policies

/-!
# The built-in configuration

The tables that are used when the user gives none. They are the same for every technology, but for
the types of resources that run commands and the marks of variables; scripts of Terraform also have
the policy rules.
-/

namespace InfraSmells

/-- The built-in tables of the design checkers. -/
def DesignConfig.builtIn : DesignConfig where
  execTypes := ["exec", "execute", "script", "shell", "command", "bash", "powershell",
    "powershell_script", "batch"]

/-- The built-in tables of the security checkers. -/
def SecurityConfig.builtIn : SecurityConfig where
  suspiciousWords := ["bug", "debug", "todo", "to-do", "to_do", "fix", "fixme", "fix-me", "fix_me", "hack",
    "ticket", "later", "incorrect", "issue", "problem", "solve", "xxx"]
  passwords := ["pass", "pwd", "password", "passwd", "passno", "pass-no", "pass_no"]
  users := ["root", "user", "uname", "username", "user-name", "user_name", "owner-name",
    "owner_name", "owner", "admin", "login", "userid", "loginid"]
  profiles := ["userprofile", "profile"]
  secrets := ["auth_token", "authetication_token", "auth-token", "authentication-token", "token",
    "secret", "ssh_key", "ssh-key", "sshkey", "private_key", "private-key", "privatekey",
    "secret_key", "secret-key", "client_secret", "api_key", "api-key", "apikey",
    "access_key", "access-key", "credential", "credentials"]
  secretExceptions := ["token_url", "token_uri", "secret_name", "secret_id", "user_agent", "user_data",
    "username_attribute", "password_policy", "password_length", "password_reset_required"]
  roles := ["role", "roles"]
  downloadExtensions := ["iso", "tar", "tar.gz", "tar.bzip2", "zip", "rar", "gzip", "gzip2", "deb", "rpm", "sh",
    "run", "bin", "exe", "7z", "msi", "bat", "dmg", "tgz", "jar"]
  sshDirectories := ["source", "destination", "path", "directory", "src", "dest", "file"]
  admins := ["admin", "root"]
  checksums := ["gpg", "checksum", "sha256sum", "sha256", "sha512", "gpgcheck", "verify"]
  weakAlgorithms := ["md5", "sha1", "arcfour", "des-cbc", "rc4"]
  weakExceptions := ["checksum"]
  plainHosts := ["localhost", "127.0.0.1", "::1"]
  bindCommands := ["bind_all", "bind_all_interfaces", "listen_all", "listen_all_interfaces",
    "bind_address_any"]
  officialImages := ["adminer", "aerospike", "almalinux", "alpine", "amazoncorretto", "amazonlinux",
    "arangodb", "archlinux", "bash", "bonita", "buildpack-deps", "busybox", "caddy",
    "cassandra", "chronograf", "cirros", "clearlinux", "clojure", "composer", "consul",
    "couchbase", "couchdb", "crate", "debian", "docker", "drupal", "eclipse-mosquitto",
    "eclipse-temurin", "eggdrop", "elasticsearch", "elixir", "erlang", "fedora", "flink",
    "fluentd", "gazebo", "gcc", "geonetwork", "ghost", "golang", "gradle", "groovy",
    "haproxy", "haskell", "hello-world", "httpd", "hylang", "ibm-semeru-runtimes",
    "ibmjava", "influxdb", "irssi", "jetty", "joomla", "jruby", "julia", "kapacitor",
    "kibana", "kong", "logstash", "mageia", "mariadb", "matomo", "maven", "memcached",
    "mongo", "mongo-express", "mono", "mysql", "nats", "neo4j", "neurodebian", "nextcloud",
    "nginx", "node", "odoo", "open-liberty", "oraclelinux", "orientdb", "percona", "perl",
    "photon", "php", "phpmyadmin", "plone", "postfixadmin", "postgres", "pypy", "python",
    "r-base", "rabbitmq", "redis", "redmine", "registry", "rethinkdb", "rockylinux",
    "rocket.chat", "ruby", "rust", "sapmachine", "satosa", "silverpeas", "solr",
    "sonarqube", "spark", "storm", "swift", "teamspeak", "telegraf", "tomcat", "tomee",
    "traefik", "ubuntu", "vault", "websphere-liberty", "wordpress", "xwiki", "yourls",
    "znc", "zookeeper"]
  deprecatedImages := ["celery", "centos", "clefos", "crux", "django", "euleros", "express-gateway", "fsharp",
    "glassfish", "hipache", "iojs", "java", "jenkins", "kaazing-gateway", "nats-streaming",
    "notary", "openjdk", "owncloud", "php-zendserver", "piwik", "rails", "rapidoid",
    "sentry", "sourcemage", "swarm", "thrift", "ubuntu-debootstrap", "ubuntu-upstart"]
  dangerousTags := ["latest", "nightly", "dev", "edge", "unstable", "beta", "alpha", "rc", "snapshot",
    "canary", "master"]

/-- The built-in tables of the design checkers for a technology. -/
def DesignConfig.builtInFor : Technology → DesignConfig
  | .ansible => { builtIn with
    execTypes := ["shell", "command", "raw", "script", "win_shell", "win_command",
      "ansible.builtin.shell", "ansible.builtin.command", "ansible.builtin.raw",
      "ansible.builtin.script", "ansible.windows.win_shell", "ansible.windows.win_command"] }
  | .chef => { builtIn with
    execTypes := ["execute", "bash", "script", "powershell_script", "batch", "csh", "ksh", "perl",
      "python", "ruby"] }
  | .puppet => { builtIn with
    execTypes := ["exec"]
    referenceSymbol := "$"
    defaultVariables := ["facts", "trusted", "server_facts", "title", "name", "module_name", "environment"] }
  | .terraform => { builtIn with
    execTypes := ["resource.null_resource", "resource.terraform_data", "provisioner.local-exec",
      "provisioner.remote-exec"] }
  | .docker | .gha => { builtIn with execTypes := ["run"] }
  | _ => builtIn

/-- The built-in configuration for a technology. -/
def Config.builtIn (t : Technology) : Config where
  technology := t
  source := "embedded:" ++ t.name
  design := .builtInFor t
  security := .builtIn
  policy := if t = .terraform then .builtIn else {}

end InfraSmells
